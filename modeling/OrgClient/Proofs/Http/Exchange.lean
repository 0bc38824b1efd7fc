import OrgClient.Http.Session
import OrgClient.Proofs.Outcome

namespace OrgClient.Http

set_option autoImplicit true

/-- The message for a request, if its URL can be read and it can be sent. -/
def Request.prepared (r : Request) (c : Config) : Except Error Message := do
  r.message c (← r.target)

/-- The message for a request goes to its URL, apart from names and passwords, with what it has. -/
theorem Request.message_of_prepared {r : Request} (h : r.prepared c = .ok m) :
    ∃ u, r.target = .ok u ∧
      m = ⟨r.method, u.withoutUser, withDefaults c (r.askedHeaders u), r.body⟩ := by
  obtain ⟨u, hu, h⟩ := bind_eq_ok_iff.mp h
  rw [message] at h
  split at h
  · cases h
  · split at h
    · cases h
    · cases h
      exact ⟨u, hu, rfl⟩

/-- The sendings of a message, up to the last one. All before it were answered with a redirection,
and what was sent next is the message that follows it. -/
inductive Course : Message → List Sending → Sending → Prop
  | once (m : Message) (d : Delivery) : Course m [⟨m, d⟩] ⟨m, d⟩
  | redirect (r : Redirect) (h : Course (r.follow m) ss last) :
    Course m (⟨m, .received (.redirect r)⟩ :: ss) last

/-- A request that was handed over, and what was sent for it. -/
structure Exchange where
  request : Request
  sendings : List Sending

namespace Exchange

def entries (e : Exchange) : List Entry :=
  .request e.request :: e.sendings.map .sending

/-- How an exchange ends. If there is no message for the request, nothing is sent and it is told
why. Otherwise the message is sent once, and sent on only where an answer says so, and what is told
is what becomes of the last one sent. -/
structure Ends (e : Exchange) (c : Config) (o : Except Error Response) : Prop where
  unprepared : ∀ x, e.request.prepared c = .error x → e.sendings = [] ∧ o = .error x
  prepared : ∀ m, e.request.prepared c = .ok m →
    e.sendings.length ≤ Network.maxRedirects + 1 ∧
      ∃ last, Course m e.sendings last ∧ o = last.outcome >>= Response.checked

end Exchange

def Entry.request? : Entry → Option Request
  | .request r => some r
  | .sending _ => none

def Entry.message? : Entry → Option Message
  | .request _ => none
  | .sending s => some s.message

namespace Network

/-- The requests that were handed over, also those of which no message could be made. -/
def handed (n : Network) : List Request :=
  n.log.filterMap Entry.request?

/-- The messages that were sent, also those that did not arrive. -/
def sent (n : Network) : List Message :=
  n.log.filterMap Entry.message?

/-- What becomes of a request, and the network behind it. -/
def exchange (n : Network) (c : Config) (r : Request) : Except Error Response × Network :=
  match r.prepared c with
  | .error e => (.error e, n.hand r)
  | .ok m =>
    let (last, n') := deliver maxRedirects m (n.hand r)
    (last.outcome >>= Response.checked, n')

theorem exchange_of_unprepared (h : r.prepared c = .error e) (n : Network) :
    n.exchange c r = (.error e, n.hand r) := by
  rw [exchange, h]

theorem exchange_of_prepared (h : r.prepared c = .ok m) (n : Network) :
    n.exchange c r = ((deliver maxRedirects m (n.hand r)).1.outcome >>= Response.checked,
      (deliver maxRedirects m (n.hand r)).2) := by
  rw [exchange, h]

theorem log_send (n : Network) (m : Message) :
    (n.send m).2.log = n.log ++ [.sending ⟨m, (n.send m).1⟩] := by
  unfold send
  split <;> rfl

/-- What a message adds to the log. -/
theorem exists_course (k : Nat) (m : Message) (n : Network) :
    ∃ ss, Course m ss (deliver k m n).1 ∧ ss.length ≤ k + 1 ∧
      (deliver k m n).2.log = n.log ++ ss.map .sending := by
  induction k generalizing m n with
  | zero => exact ⟨_, .once m (n.send m).1, Nat.le_refl 1, n.log_send m⟩
  | succ k ih =>
    have hl := n.log_send m
    unfold deliver
    split
    · rename_i r hd
      obtain ⟨ss, hc, hs, hlog⟩ := ih (r.follow m) (n.send m).2
      refine ⟨_, .redirect r hc, Nat.succ_le_succ hs, ?_⟩
      rw [hlog, hl, hd, List.append_assoc]
      rfl
    · exact ⟨_, .once m _, Nat.succ_le_succ (Nat.zero_le _), hl⟩

/-- A request is added to the log with what was sent for it. -/
theorem exists_exchange (n : Network) (c : Config) (r : Request) :
    ∃ e : Exchange, e.request = r ∧ e.Ends c (n.exchange c r).1 ∧
      (n.exchange c r).2.log = n.log ++ e.entries := by
  cases h : r.prepared c with
  | error x =>
    rw [exchange_of_unprepared h]
    refine ⟨⟨r, []⟩, rfl, ⟨fun y hy => ⟨rfl, ?_⟩, fun m hm => ?_⟩, rfl⟩
    · rw [h] at hy
      cases hy
      rfl
    · rw [h] at hm
      cases hm
  | ok m =>
    rw [exchange_of_prepared h]
    obtain ⟨ss, hc, hs, hl⟩ := exists_course maxRedirects m (n.hand r)
    refine ⟨⟨r, ss⟩, rfl, ⟨fun y hy => ?_, fun m' hm => ⟨hs, _, ?_, rfl⟩⟩, ?_⟩
    · rw [h] at hy
      cases hy
    · rw [h] at hm
      cases hm
      exact hc
    · rw [hl, hand, List.append_assoc]
      rfl

end Network

theorem Exchange.filterMap_request_entries (e : Exchange) :
    e.entries.filterMap Entry.request? = [e.request] := by
  have hs : (e.sendings.map Entry.sending).filterMap Entry.request? = [] := by
    rw [List.filterMap_map]
    exact List.filterMap_eq_nil_iff.mpr fun _ _ => rfl
  rw [entries, List.filterMap_cons, hs]
  rfl

theorem Network.handed_of_log {n n' : Network} {e : Exchange} (h : n'.log = n.log ++ e.entries) :
    n'.handed = n.handed ++ [e.request] := by
  rw [handed, h, List.filterMap_append, e.filterMap_request_entries]
  rfl

/-- Every request is handed over once, whatever becomes of it. -/
theorem Network.handed_exchange (n : Network) (c : Config) (r : Request) :
    (n.exchange c r).2.handed = n.handed ++ [r] := by
  obtain ⟨e, rfl, -, hl⟩ := n.exists_exchange c r
  exact handed_of_log hl

theorem Course.exists_cons (h : Course m ss last) : ∃ d ss', ss = ⟨m, d⟩ :: ss' := by
  cases h with
  | once m d => exact ⟨d, [], rfl⟩
  | redirect r h => exact ⟨_, _, rfl⟩

/-- The message for a request is the first that is sent for it. -/
theorem Network.sent_exchange (h : r.prepared c = .ok m) (n : Network) :
    ∃ rest, (n.exchange c r).2.sent = n.sent ++ m :: rest := by
  obtain ⟨e, rfl, he, hl⟩ := n.exists_exchange c r
  obtain ⟨-, last, hc, -⟩ := he.prepared m h
  obtain ⟨d, ss, hs⟩ := hc.exists_cons
  refine ⟨(ss.map Entry.sending).filterMap Entry.message?, ?_⟩
  rw [sent, hl, List.filterMap_append, Exchange.entries, hs]
  rfl

theorem network_note (level : Level) (message : String) (data : List (String × Datum))
    (s : Session) : ((note level message data).run s).2.network = s.network :=
  rfl

theorem hand_run (r : Request) (s : Session) :
    (hand r).run s = ((), { s with network := s.network.hand r }) :=
  rfl

theorem deliver_run (m : Message) (s : Session) :
    (deliver m).run s = ((Network.deliver Network.maxRedirects m s.network).1,
      { s with network := (Network.deliver Network.maxRedirects m s.network).2 }) :=
  rfl

namespace Config

theorem network_note (c : Config) (level : Level) (message : String)
    (data : List (String × Datum)) (s : Session) :
    ((c.note level message data).run s).2.network = s.network := by
  unfold Config.note
  split <;> rfl

theorem network_noteResponse (c : Config) (r : Response) (s : Session) :
    ((c.noteResponse r).run s).2.network = s.network := by
  unfold noteResponse
  split
  · exact c.network_note _ _ _ s
  · exact c.network_note _ _ _ s

/-- Events aside, to execute a request is to exchange it with the network. -/
theorem execute_run (c : Config) (r : Request) (s : Session) :
    ((c.execute r).run s).1 = (s.network.exchange c r).1 ∧
      ((c.execute r).run s).2.network = (s.network.exchange c r).2 := by
  have hn (s' : Session) :
      ((c.note .debug "Sending request" []).run s').2.network = s'.network :=
    c.network_note _ _ _ s'
  unfold execute Network.exchange Request.prepared
  simp only [run_bind_state, run_liftM_except, run_liftM_state, hand_run, deliver_run]
  cases r.target with
  | error e => exact ⟨rfl, rfl⟩
  | ok u =>
    simp only [ok_bind]
    cases r.message c u with
    | error e => exact ⟨rfl, hn _⟩
    | ok m =>
      simp only [hn]
      cases (Network.deliver Network.maxRedirects m (s.network.hand r)).1.outcome with
      | error e => exact ⟨rfl, rfl⟩
      | ok response => exact ⟨rfl, c.network_noteResponse response _⟩

end Config

end OrgClient.Http
