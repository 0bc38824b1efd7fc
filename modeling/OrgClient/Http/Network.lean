import OrgClient.Http.Request

namespace OrgClient.Http

/-- The body of an answer is what is read of it, without the coding that it was sent in. -/
structure Answer where
  status : Nat
  headers : Headers
  body : List UInt8

/-- Where an answer sends a message on to. -/
structure Redirect where
  url : Url
  /-- What becomes of the headers on the way. -/
  headers : Headers → Headers
  /-- Whether the method and the content stay; if not, the message becomes a GET without content. -/
  whole : Bool

def Redirect.follow (r : Redirect) (m : Message) : Message :=
  if r.whole then { m with url := r.url, headers := r.headers m.headers }
  else ⟨.get, r.url, r.headers m.headers, none⟩

/-- What a server does with a message. -/
inductive Conduct where
  | answer (a : Answer)
  /-- Announces more of a body than it sends. -/
  | cutShort (a : Answer)
  | hangUp
  | stayMute
  /-- Answers that the message is to be sent to another place. -/
  | redirect (r : Redirect)

inductive Delivery where
  | refused
  | received (conduct : Conduct)

/-- A message that was sent, and what became of it. -/
structure Sending where
  message : Message
  delivery : Delivery

/-- What is handed over to a network is a request; what goes over it are messages. -/
inductive Entry where
  | request (r : Request)
  | sending (s : Sending)

/-- A network: which places have a listener, what the servers there do with the next messages, and
what was handed over and sent so far. -/
structure Network where
  listens : Url → Bool
  script : List Conduct
  log : List Entry

namespace Network

/-- What servers do when nothing else is laid down: they answer with an empty failure. -/
def fallback : Conduct :=
  .answer ⟨500, [], []⟩

def hand (n : Network) (r : Request) : Network :=
  { n with log := n.log ++ [.request r] }

/-- Sends a message to its place, and nowhere else. -/
def send (n : Network) (m : Message) : Delivery × Network :=
  if n.listens m.url then
    let delivery := Delivery.received (n.script.headD fallback)
    (delivery, { n with script := n.script.tail, log := n.log ++ [.sending ⟨m, delivery⟩] })
  else (.refused, { n with log := n.log ++ [.sending ⟨m, .refused⟩] })

/-- The greatest number of times that a message is sent on. -/
def maxRedirects : Nat := 10

/-- Sends a message, and sends it on where the answers say so, a number of times at the most. What
becomes of it is what becomes of the last one sent. -/
def deliver : Nat → Message → Network → Sending × Network
  | 0, m, n => (⟨m, (n.send m).1⟩, (n.send m).2)
  | redirects + 1, m, n =>
    match (n.send m).1 with
    | .received (.redirect r) => deliver redirects (r.follow m) (n.send m).2
    | delivery => (⟨m, delivery⟩, (n.send m).2)

/-- The messages that arrived. -/
def received (n : Network) : List Message :=
  n.log.filterMap fun
    | .sending ⟨m, .received _⟩ => some m
    | _ => none

end Network

end OrgClient.Http
