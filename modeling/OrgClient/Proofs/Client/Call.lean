import OrgClient.Client.Work
import OrgClient.Proofs.Http.Exchange

namespace OrgClient

open Http (Network Request Response Session)
set_option autoImplicit true

namespace Connection

theorem network_keepUsage (c : Connection) (r : Response) (s : Session) :
    ((c.keepUsage r).run s).2.network = s.network := by
  unfold keepUsage
  split
  · rfl
  · rename_i u _
    exact c.config.network_note .debug "API usage"
      [("used", .count u.used), ("limit", .count u.limit)] s

theorem execute_run (c : Connection) (r : Request) (s : Session) :
    ((c.execute r).run s).1 = (s.network.exchange c.config r).1 ∧
      ((c.execute r).run s).2.network = (s.network.exchange c.config r).2 := by
  obtain ⟨ho, hn⟩ := c.config.execute_run r s
  rw [← ho, ← hn, execute, run_bind_state]
  rcases (c.config.execute r).run s with ⟨_ | response, s'⟩
  · exact ⟨rfl, rfl⟩
  · exact ⟨rfl, c.network_keepUsage response s'⟩

/-- What is read from the answer to a request. -/
def asked (c : Connection) (d : Json.Decoder α) (r : Request) (n : Network) :
    Except Http.Error α := do
  (← (n.exchange c.config r).1).json d

theorem asked_of_unprepared {c : Connection} (h : r.prepared c.config = .error e)
    (d : Json.Decoder α) (n : Network) : c.asked d r n = .error e := by
  rw [asked, Network.exchange_of_unprepared h]
  rfl

theorem sendJson_run (c : Connection) (d : Json.Decoder α) (r : Request) (s : Session) :
    ((c.sendJson d r).run s).1 = c.asked d r s.network ∧
      ((c.sendJson d r).run s).2.network = (s.network.exchange c.config r).2 := by
  obtain ⟨ho, hn⟩ := c.execute_run r s
  rw [asked, ← ho, ← hn, sendJson, run_bind_state]
  rcases (c.execute r).run s with ⟨_ | response, s'⟩ <;> exact ⟨rfl, rfl⟩

end Connection

namespace Work

theorem run_ofCall (call : Http.Call α) (s : Session) :
    (ofCall call).run s = ((call.run s).1.mapError Error.ofHttp, (call.run s).2) :=
  rfl

end Work

end OrgClient
