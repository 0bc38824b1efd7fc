import OrgClient.Http.Event
import OrgClient.Http.Network
import OrgClient.Http.Response

namespace OrgClient.Http

open Json (Decoder)

/-- The network, the events that were noted, and the usage of the API that was reported last. A
session outlives the errors of single calls. -/
structure Session where
  network : Network
  events : List Event
  usage : Option Usage

/-- A call in a session, which may fail. -/
abbrev Call := ExceptT Error (StateM Session)

def note (level : Level) (message : String) (data : List (String × Datum)) :
    StateM Session Unit :=
  modify fun s => { s with events := s.events ++ [⟨level, message, data⟩] }

def hand (r : Request) : StateM Session Unit :=
  modify fun s => { s with network := s.network.hand r }

def deliver (m : Message) : StateM Session Sending :=
  modifyGet fun s =>
    let (last, network) := s.network.deliver Network.maxRedirects m
    (last, { s with network })

/-- What is known of a message by what became of it. -/
def Sending.outcome (s : Sending) : Except Error Response :=
  let url := s.message.url.text
  match s.delivery with
  | .refused => .error (.causedBy (.connection ("error sending request for url (" ++ url ++ ")")))
  | .received .hangUp =>
    .error (.causedBy (.other ("error sending request for url (" ++ url ++ ")")))
  | .received .stayMute => .error (.causedBy .timeout)
  | .received (.redirect _) =>
    .error (.causedBy (.other ("error following redirect for url (" ++ url ++ ")")))
  | .received (.answer a) => .ok ⟨url, a.status, a.headers, a.body, true⟩
  | .received (.cutShort a) => .ok ⟨url, a.status, a.headers, a.body, false⟩

namespace Config

/-- Notes an event about a request, if such events are to be noted. -/
def note (c : Config) (level : Level) (message : String) (data : List (String × Datum)) :
    StateM Session Unit :=
  if c.tracing then Http.note level message data else pure ()

def noteResponse (c : Config) (r : Response) : StateM Session Unit :=
  if r.isSuccess then c.note .debug "Response received" [("status", .count r.status)]
  else c.note .info "Non-success response" [("status", .count r.status)]

def execute (c : Config) (r : Request) : Call Response := do
  hand r
  let url ← r.target
  c.note .debug "Sending request" []
  let message ← r.message c url
  let response ← (← deliver message).outcome
  c.noteResponse response
  response.checked

def sendJson {α : Type} (c : Config) (d : Decoder α) (r : Request) : Call α := do
  (← c.execute r).json d

end Config

end OrgClient.Http
