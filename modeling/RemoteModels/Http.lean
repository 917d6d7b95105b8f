import RemoteModels.Json.Parser
import RemoteModels.Json.Printer
import RemoteModels.Log
import RemoteModels.Text.Blank
import RemoteModels.Transport
import RemoteModels.Url.Basic

/-!
# Requests over HTTP

A client speaks to one server, perhaps with a token.  Requests are prepared and answers read here;
what carries them is a network, which may be out of reach.

* `HttpClient.prepare` — the message of a request, or why there is none.
* `HttpResponse.json`, `HttpResponse.text` — what an answer says.
* `Network.exchange` — sending a message.
* `HttpClient.getJson`, `HttpClient.postJson`, `HttpClient.getText` — requests with their answers.
-/

set_option autoImplicit false

namespace RemoteModels

open Json (Value)

/-! ## Messages

Both ends of an exchange: the message with its headers, and the answer with its status.  A body is
bytes on the way and text for those who read it. -/

inductive HttpMethod where
  | get
  | post
deriving DecidableEq

def HttpMethod.name : HttpMethod → String
  | .get => "GET"
  | .post => "POST"

/-- What is sent. -/
structure HttpMessage where
  method : HttpMethod
  url : Url
  authorization : Option String
  contentType : Option String
  body : String
deriving DecidableEq

/-- What comes back for a message.  Redirects are followed on the way, so this is the answer at the
end of them and never one that only points elsewhere. -/
structure HttpResponse where
  status : Nat
  contentType : Option (List UInt8)
  body : List UInt8
deriving DecidableEq

namespace HttpResponse

def bodyText (r : HttpResponse) : String := Text.lossy r.body

/-- An answer whose status does not tell success is an error of the server. -/
def check (r : HttpResponse) : Except TransportError HttpResponse :=
  if 200 ≤ r.status ∧ r.status < 300 then .ok r else .error (.server r.status r.bodyText)

/-- The value of a body; a blank one is null. -/
def decode (body : String) : Answer :=
  if Text.isAllBlank body then .ok .null
  else
    match Json.parse body with
    | .ok v => .ok v
    | .error e => .error (.decode ("response body: " ++ e.message))

/-- The value in an answer. -/
def json (r : HttpResponse) : Answer := do decode (← r.check).bodyText

/-- The content type, if it is made of visible characters. -/
def visibleType (r : HttpResponse) : Option String :=
  match r.contentType with
  | none => none
  | some bytes =>
    if bytes.all fun b => (0x20 ≤ b && b < 0x7F) || b == 9 then
      some (String.ofList (bytes.map fun b => Char.ofNat b.toNat))
    else none

def text (r : HttpResponse) : TextAnswer := do
  let r ← r.check
  return ⟨r.visibleType, r.bodyText⟩

end HttpResponse

/-! ## Networks

A network is data: it holds the answers it will give, and what is left of it after an exchange is a
network again. -/

/-- What carries messages: nothing, or a server that answers from a list and may close the
connection without an answer. -/
inductive Network where
  | unreachable
  | scripted (responses : List (Option HttpResponse))

/-- The answer behind the end of the list. -/
def HttpResponse.exhausted : HttpResponse :=
  ⟨500, none, "no scripted response".toUTF8.toList⟩

namespace Network

/-- Hands a message over to be sent: the answer that is returned for it, if one is, the network
afterwards, and the messages that were taken.

One exchange is one message from the program and one answer to it.  Whatever it takes to get that
answer is inside: messages that are sent again because an answer redirects them are not counted, and
the answer is that to the last of them. -/
def exchange (n : Network) (m : HttpMessage) : Option HttpResponse × Network × List HttpMessage :=
  match n with
  | .unreachable => (none, .unreachable, [])
  | .scripted [] => (some .exhausted, .scripted [], [m])
  | .scripted (r :: rest) => (r, .scripted rest, [m])

end Network

/-! ## Clients

A message may fail before it is sent, for its address or its token, and the faults are looked for in
this order. -/

/-- A server, and the token that is shown to it. -/
structure HttpClient where
  base : String
  token : Option String
deriving DecidableEq

namespace HttpClient

/-- A client for a server, whose address is taken without slashes at its end. -/
def ofServer (server : String) (token : Option String) : HttpClient :=
  ⟨String.ofList (server.toList.reverse.dropWhile (· = '/')).reverse, token⟩

/-- Whether a token can stand in a header. -/
def isHeaderText (s : String) : Bool :=
  s.toList.all fun c => (0x20 ≤ c.toNat || c == '\t') && c.toNat != 0x7F

/-- The longest URL that can be sent, in bytes. -/
def maxUrlLength : Nat := 65534

/-- Whether the user of a URL can be read, so that it moves into a header. -/
def hasReadableUser (u : Url) : Bool :=
  match u.authority with
  | some a => (Text.strict (Url.decodeBytes a.username.toList)).isSome
  | none => true

/-- The URL that is sent. -/
def target (u : Url) : Url := if hasReadableUser u then u.withoutUser else u

/-- The message of a request for a path, or the first reason why it cannot be built. -/
def prepare (c : HttpClient) (method : HttpMethod) (path : String) (body : Option String) :
    Except NetworkFault HttpMessage :=
  match Url.parse (c.base ++ path) with
  | none => .error (.builder none)
  | some u =>
    let token := c.token.getD ""
    let sent := target u
    if !u.hasHost then .error (.builder (some u.text))
    else if !isHeaderText token then .error (.builder none)
    else if sent.scheme ≠ "http" ∧ sent.scheme ≠ "https" then .error (.builder (some sent.text))
    else if maxUrlLength < sent.text.utf8ByteSize then .error (.builder (some sent.text))
    else
      .ok
        { method := method
          url := sent
          authorization := c.token.map ("Bearer " ++ ·)
          contentType := body.map fun _ => "application/json"
          body := body.getD "" }

/-- What a request came to: its answer, the network afterwards, and what was handed over to be sent
and not lost on the way, which is one message at most. -/
structure Exchange (α : Type) where
  answer : Except TransportError α
  network : Network
  arrived : List HttpMessage := []

/-- Sends a request and reads its answer. -/
def send {α : Type} (c : HttpClient) (n : Network) (method : HttpMethod) (path : String)
    (body : Option String) (read : HttpResponse → Except TransportError α) : Exchange α :=
  match c.prepare method path body with
  | .error fault => { answer := .error (.network fault), network := n }
  | .ok m =>
    match n.exchange m with
    | (none, n, arrived) =>
      { answer := .error (.network (.sending m.url.text)), network := n, arrived := arrived }
    | (some r, n, arrived) => { answer := read r, network := n, arrived := arrived }

/-- Asks for a value. -/
def getJson (c : HttpClient) (n : Network) (path : String) : Exchange Value :=
  c.send n .get path none (·.json)

/-- Sends a value and asks for one. -/
def postJson (c : HttpClient) (n : Network) (path : String) (body : Value) : Exchange Value :=
  c.send n .post path (some body.compact) (·.json)

/-- Asks for a text. -/
def getText (c : HttpClient) (n : Network) (path : String) : Exchange TextResponse :=
  c.send n .get path none (·.text)

end HttpClient
end RemoteModels
